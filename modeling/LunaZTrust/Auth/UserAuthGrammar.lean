import LunaZTrust.Auth.SessionBinding

/-!
# The user-authentication grammar and its validator

RFC 4252 (section 7) fixes the bytes a client signs to authenticate with a
public key:

```
string    session identifier
byte      SSH_MSG_USERAUTH_REQUEST (50)
string    user name
string    "ssh-connection"
string    "publickey"
boolean   TRUE
string    public key algorithm name
string    public key
```

and OpenSSH's host-bound method appends the server's host key as one more
`string`.  `UserAuthPayload` is such a message and `encode` writes it.  Since
every field is either a single byte or carries its own length, a payload can be
read in one way only, and the validator's first layout reads exactly that way.

The second layout reads the same fields without the message number
(`encodeUntyped`).  It is what makes the validator accept more than the grammar;
it does not make it accept a payload of the grammar for something else, because
a payload of the grammar is always read by the first layout.
-/

namespace LunaZTrust.Auth

open LunaZTrust.Go LunaZTrust.Ssh

/-! ## Payloads -/

/-- The strings the grammar fixes. -/
def sshConnection : SshString := ⟨str "ssh-connection", by decide⟩

/-- The public-key method of RFC 4252. -/
def publickey : SshString := ⟨str "publickey", by decide⟩

/-- OpenSSH's host-bound public-key method. -/
def publickeyHostbound : SshString := ⟨str "publickey-hostbound-v00@openssh.com", by decide⟩

/-- The method of a public-key request; the host-bound one carries a host key. -/
inductive PublicKeyMethod
  | publickey
  | hostbound (hostKey : SshString)

namespace PublicKeyMethod

/-- The name of the method on the wire. -/
def name : PublicKeyMethod → SshString
  | .publickey => Auth.publickey
  | .hostbound _ => publickeyHostbound

/-- What the method appends to the request. -/
def tail : PublicKeyMethod → Bytes
  | .publickey => []
  | .hostbound hostKey => putString hostKey

end PublicKeyMethod

/-- The variable parts of a public-key user-authentication request. -/
structure UserAuthPayload where
  session : SshString
  user : SshString
  method : PublicKeyMethod
  algorithm : SshString
  publicKey : SshString

namespace UserAuthPayload

/-- The part of a payload after the message number, with the given byte as its
boolean. -/
def encodeRequest (p : UserAuthPayload) (flag : UInt8) : Bytes :=
  putString p.user ++ (putString sshConnection ++ (putString p.method.name ++
    (flag :: (putString p.algorithm ++ (putString p.publicKey ++ p.method.tail)))))

/-- The bytes of a payload, with the given byte as its boolean. -/
def encode (p : UserAuthPayload) (flag : UInt8) : Bytes :=
  putString p.session ++ (msgUserAuthRequest :: p.encodeRequest flag)

/-- The same fields without the message number. -/
def encodeUntyped (p : UserAuthPayload) (flag : UInt8) : Bytes :=
  putString p.session ++ p.encodeRequest flag

/-- The payload is for this session, user, public key and, where the method is
bound to a host, host key. -/
def IsFor (p : UserAuthPayload) (session user publicKey hostKey : Bytes) : Prop :=
  p.session.val = session ∧ p.user.val = user ∧ p.publicKey.val = publicKey ∧
    ∀ h, p.method = .hostbound h → h.val = hostKey

end UserAuthPayload

/-! ## Wire readings

`Reading` is what either layout finds in the bytes: the strings with their
lengths checked, the boolean's byte, and the open tail. -/

/-- The fields common to both layouts. -/
structure Reading where
  session : SshString
  user : SshString
  service : SshString
  method : SshString
  flag : UInt8
  algorithm : SshString
  publicKey : SshString
  rest : Bytes

namespace Reading

/-- The bytes after the session id and the message number. -/
def encodeRequest (w : Reading) : Bytes :=
  putString w.user ++ (putString w.service ++ (putString w.method ++
    (w.flag :: (putString w.algorithm ++ (putString w.publicKey ++ w.rest)))))

/-- The parsed struct of a reading. -/
def toSignData (w : Reading) : UserAuthSignData where
  sessionID := w.session.val
  user := w.user.val
  service := w.service.val
  method := w.method.val
  hasSig := w.flag != 0
  algorithm := w.algorithm.val
  publicKey := w.publicKey.val
  rest := w.rest

/-- The parsed Go-layout struct of a reading with the given message number. -/
def toGoSignData (w : Reading) (type : UInt8) : GoUserAuthSignData where
  session := w.session.val
  type := type
  user := w.user.val
  service := w.service.val
  method := w.method.val
  sign := w.flag != 0
  algo := w.algorithm.val
  pubKey := w.publicKey.val
  rest := w.rest

end Reading

/-- The reading of a payload. -/
def UserAuthPayload.reading (p : UserAuthPayload) (flag : UInt8) : Reading where
  session := p.session
  user := p.user
  service := sshConnection
  method := p.method.name
  flag := flag
  algorithm := p.algorithm
  publicKey := p.publicKey
  rest := p.method.tail

variable {Key Signer : Type} (ssh : Package Key Signer)

/-! ## What the layouts read -/

/-- A request is read as the fields written. -/
theorem readFields_encodeRequest (w : Reading) (t : Option UInt8) :
    readFields [⟨.string, t⟩, ⟨.string, none⟩, ⟨.string, none⟩, ⟨.bool, none⟩, ⟨.string, none⟩,
        ⟨.string, none⟩, ⟨.rest, none⟩] w.encodeRequest =
      some ([.bytes w.user.val, .bytes w.service.val, .bytes w.method.val, .bool (w.flag != 0),
        .bytes w.algorithm.val, .bytes w.publicKey.val, .bytes w.rest], []) := by
  rw [Reading.encodeRequest, readFields_string, readFields_string, readFields_string,
    readFields_bool, readFields_string, readFields_string, readFields_rest]
  rfl

/-- What is read as a request was written as one. -/
theorem exists_reading_of_readFields {t : Option UInt8} {b : Bytes}
    {user service method algorithm publicKey rest : Bytes} {sign : Bool} (session : SshString)
    (h : readFields [⟨.string, t⟩, ⟨.string, none⟩, ⟨.string, none⟩, ⟨.bool, none⟩,
        ⟨.string, none⟩, ⟨.string, none⟩, ⟨.rest, none⟩] b =
      some ([.bytes user, .bytes service, .bytes method, .bool sign, .bytes algorithm,
        .bytes publicKey, .bytes rest], [])) :
    ∃ w : Reading, w.session = session ∧ b = w.encodeRequest ∧
      w.toSignData = { sessionID := session.val, user, service, method, hasSig := sign,
                       algorithm, publicKey, rest } := by
  obtain ⟨_, h₁, r₁⟩ := readFields_cons_eq_some_iff.mp h
  obtain ⟨u, hu, rfl⟩ := readField_string_eq_some_iff.mp h₁
  obtain ⟨_, h₂, r₂⟩ := readFields_cons_eq_some_iff.mp r₁
  obtain ⟨v, hv, rfl⟩ := readField_string_eq_some_iff.mp h₂
  obtain ⟨_, h₃, r₃⟩ := readFields_cons_eq_some_iff.mp r₂
  obtain ⟨m, hm, rfl⟩ := readField_string_eq_some_iff.mp h₃
  obtain ⟨_, h₄, r₄⟩ := readFields_cons_eq_some_iff.mp r₃
  obtain ⟨c, hc, rfl⟩ := readField_bool_eq_some_iff.mp h₄
  obtain ⟨_, h₅, r₅⟩ := readFields_cons_eq_some_iff.mp r₄
  obtain ⟨a, ha, rfl⟩ := readField_string_eq_some_iff.mp h₅
  obtain ⟨_, h₆, r₆⟩ := readFields_cons_eq_some_iff.mp r₅
  obtain ⟨k, hk, rfl⟩ := readField_string_eq_some_iff.mp h₆
  obtain ⟨_, h₇, -⟩ := readFields_cons_eq_some_iff.mp r₆
  obtain ⟨hr, -⟩ := readField_rest_eq_some_iff.mp h₇
  injection hu with hu
  injection hv with hv
  injection hm with hm
  injection hc with hc
  injection ha with ha
  injection hk with hk
  injection hr with hr
  subst hu hv hm hc ha hk hr
  exact ⟨⟨session, u, v, m, c, a, k, rest⟩, rfl, rfl, rfl⟩

/-- The first layout reads a session id, a message number and a request. -/
theorem unmarshalGoUserAuthSignData_eq_some_iff {data : Bytes} {g : GoUserAuthSignData} :
    unmarshalGoUserAuthSignData ssh data = some g ↔
      ∃ (w : Reading) (t : UInt8),
        data = putString w.session ++ (t :: w.encodeRequest) ∧ g = w.toGoSignData t := by
  constructor
  · intro h
    unfold unmarshalGoUserAuthSignData at h
    split at h
    · rename_i hd
      rw [ssh.unmarshal_eq_decode] at hd
      obtain ⟨-, hr⟩ := decode_untagged_eq_some_iff.mp hd
      obtain ⟨_, h₀, r₀⟩ := readFields_cons_eq_some_iff.mp hr
      obtain ⟨s, hs, rfl⟩ := readField_string_eq_some_iff.mp h₀
      obtain ⟨_, h₁, r₁⟩ := readFields_cons_eq_some_iff.mp r₀
      obtain ⟨t, ht, rfl⟩ := readField_byte_eq_some_iff.mp h₁
      obtain ⟨w, rfl, rfl, hw⟩ := exists_reading_of_readFields s r₁
      injection hs with hs
      injection ht with ht
      subst hs ht
      refine ⟨w, _, rfl, ?_⟩
      rw [← Option.some.inj h]
      simp only [Reading.toSignData, UserAuthSignData.mk.injEq] at hw
      simp [Reading.toGoSignData, hw]
    · exact absurd h (by simp)
  · rintro ⟨w, t, rfl, rfl⟩
    have hr : readFields goUserAuthSignDataFields (putString w.session ++ (t :: w.encodeRequest)) =
        some ([.bytes w.session.val, .byte t, .bytes w.user.val, .bytes w.service.val,
          .bytes w.method.val, .bool (w.flag != 0), .bytes w.algorithm.val,
          .bytes w.publicKey.val, .bytes w.rest], []) := by
      rw [goUserAuthSignDataFields, readFields_string, readFields_byte, readFields_encodeRequest]
      rfl
    rw [unmarshalGoUserAuthSignData, ssh.unmarshal_eq_decode, goUserAuthSignDataFields,
      decode_untagged_eq_some_iff.mpr ⟨by simp, hr⟩]
    rfl

/-- The second layout reads a session id and a request: the tag on its second
field asks for nothing. -/
theorem unmarshalUserAuthSignData_eq_some_iff {data : Bytes} {r : UserAuthSignData} :
    unmarshalUserAuthSignData ssh data = some r ↔
      ∃ w : Reading, data = putString w.session ++ w.encodeRequest ∧ r = w.toSignData := by
  constructor
  · intro h
    unfold unmarshalUserAuthSignData at h
    split at h
    · rename_i hd
      rw [ssh.unmarshal_eq_decode] at hd
      obtain ⟨-, hr⟩ := decode_untagged_eq_some_iff.mp hd
      obtain ⟨_, h₀, r₀⟩ := readFields_cons_eq_some_iff.mp hr
      obtain ⟨s, hs, rfl⟩ := readField_string_eq_some_iff.mp h₀
      obtain ⟨w, rfl, rfl, hw⟩ := exists_reading_of_readFields s r₀
      injection hs with hs
      subst hs
      exact ⟨w, rfl, (Option.some.inj h).symm.trans hw.symm⟩
    · exact absurd h (by simp)
  · rintro ⟨w, rfl, rfl⟩
    have hr : readFields userAuthSignDataFields (putString w.session ++ w.encodeRequest) =
        some ([.bytes w.session.val, .bytes w.user.val, .bytes w.service.val,
          .bytes w.method.val, .bool (w.flag != 0), .bytes w.algorithm.val,
          .bytes w.publicKey.val, .bytes w.rest], []) := by
      rw [userAuthSignDataFields, readFields_string, readFields_encodeRequest]
      rfl
    rw [unmarshalUserAuthSignData, ssh.unmarshal_eq_decode, userAuthSignDataFields,
      decode_untagged_eq_some_iff.mpr ⟨by simp [putString_ne_nil], hr⟩]
    rfl

/-- The host key that follows a host-bound request is one string. -/
theorem unmarshalHostKey_eq_some_iff {rest hostKey : Bytes} :
    unmarshalHostKey ssh rest = some hostKey ↔
      ∃ h : SshString, rest = putString h ∧ h.val = hostKey := by
  constructor
  · intro hr
    unfold unmarshalHostKey at hr
    split at hr
    · rename_i hd
      rw [ssh.unmarshal_eq_decode] at hd
      obtain ⟨-, hd⟩ := decode_untagged_eq_some_iff.mp hd
      obtain ⟨_, h₀, hnil⟩ := readFields_cons_eq_some_iff.mp hd
      obtain ⟨h, hh, rfl⟩ := readField_string_eq_some_iff.mp h₀
      injection hh with hh
      simp only [readFields, Option.some.injEq, Prod.mk.injEq, true_and] at hnil
      exact ⟨h, by rw [hnil, List.append_nil], hh.symm.trans (Option.some.inj hr)⟩
    · exact absurd hr (by simp)
  · rintro ⟨h, rfl, rfl⟩
    have hr : readFields [⟨.string, none⟩] (putString h) = some ([.bytes h.val], []) := by
      rw [← List.append_nil (putString h), readFields_string]
      rfl
    rw [unmarshalHostKey, ssh.unmarshal_eq_decode,
      decode_untagged_eq_some_iff.mpr ⟨putString_ne_nil h, hr⟩]

/-- The first layout is taken on the bytes that have the message number after a
non-empty session id. -/
theorem readsAsGo_eq_some_iff {data : Bytes} {g : GoUserAuthSignData} :
    readsAsGo ssh data = some g ↔
      ∃ w : Reading, w.session.val ≠ [] ∧
        data = putString w.session ++ (msgUserAuthRequest :: w.encodeRequest) ∧
        g = w.toGoSignData msgUserAuthRequest := by
  simp only [readsAsGo, Option.filter_eq_some_iff, decide_eq_true_eq,
    unmarshalGoUserAuthSignData_eq_some_iff]
  constructor
  · rintro ⟨⟨w, t, hd, rfl⟩, ht, hl⟩
    have ht' : t = msgUserAuthRequest := ht
    subst ht'
    exact ⟨w, List.ne_nil_of_length_pos hl, hd, rfl⟩
  · rintro ⟨w, hl, hd, rfl⟩
    exact ⟨⟨w, _, hd, rfl⟩, rfl, List.length_pos_of_ne_nil hl⟩

theorem parseUserAuthSignData_eq_ok_iff {data : Bytes} {req : UserAuthSignData} :
    parseUserAuthSignData ssh data = .ok req ↔
      ∃ w : Reading, w.session.val ≠ [] ∧ req = w.toSignData ∧
        (data = putString w.session ++ (msgUserAuthRequest :: w.encodeRequest) ∨
          readsAsGo ssh data = none ∧ data = putString w.session ++ w.encodeRequest) := by
  have hne : ∀ {s : SshString} {b : Bytes}, data = putString s ++ b → ¬ data.length = 0 := by
    rintro s b rfl
    simp [putString_ne_nil]
  constructor
  · intro h
    unfold parseUserAuthSignData at h
    split at h
    · exact absurd h (by simp)
    · split at h
      · rename_i goReq hg
        obtain ⟨w, hs, hd, rfl⟩ := (readsAsGo_eq_some_iff ssh).mp hg
        exact ⟨w, hs, (Except.ok.inj h).symm, Or.inl hd⟩
      · rename_i hg
        split at h
        · exact absurd h (by simp)
        · rename_i r hr
          split at h
          · exact absurd h (by simp)
          · rename_i hl
            obtain ⟨w, hd, rfl⟩ := (unmarshalUserAuthSignData_eq_some_iff ssh).mp hr
            exact ⟨w, fun hc ↦ hl (by simp [Reading.toSignData, hc]),
              (Except.ok.inj h).symm, Or.inr ⟨hg, hd⟩⟩
  · rintro ⟨w, hs, rfl, hd | ⟨hg, hd⟩⟩
    · have hg := (readsAsGo_eq_some_iff ssh).mpr ⟨w, hs, hd, rfl⟩
      rw [parseUserAuthSignData, if_neg (hne hd), hg]
      rfl
    · have hr := (unmarshalUserAuthSignData_eq_some_iff ssh).mpr ⟨w, hd, rfl⟩
      have hl : ¬ w.toSignData.sessionID.length = 0 := fun hc ↦
        hs (List.eq_nil_of_length_eq_zero hc)
      rw [parseUserAuthSignData, if_neg (hne hd), hg, hr]
      exact if_neg hl

/-! ## What the validator accepts -/

/-- The checks on the parsed fields, one by one. -/
theorem validateParsedUserAuth_eq_ok_iff {req : UserAuthSignData} {user : GoString}
    {key hostKey : Key} :
    validateParsedUserAuth ssh req user (some key) hostKey = .ok () ↔
      req.user = user ∧ req.service = str "ssh-connection" ∧ req.hasSig = true ∧
        req.publicKey = ssh.marshal key ∧
        (req.method = str "publickey" ∧ req.rest = [] ∨
          req.method = str "publickey-hostbound-v00@openssh.com" ∧
            unmarshalHostKey ssh req.rest = some (ssh.marshal hostKey)) := by
  have hname : str "publickey-hostbound-v00@openssh.com" ≠ str "publickey" := by decide
  unfold validateParsedUserAuth
  simp only []
  split
  · rename_i hc
    constructor
    · intro h
      exact absurd h (by simp)
    · rintro ⟨hu, hv, hs, hk, -⟩
      simp [hu, hv, hs, hk] at hc
  · rename_i hc
    simp only [not_or, not_not, ne_eq, Bool.not_eq_false] at hc
    obtain ⟨hu, hv, hs, hk⟩ := hc
    simp only [hu, hv, hs, hk, true_and]
    split
    · rename_i hm
      rw [hm]
      by_cases hr : req.rest = []
      · simp [hr]
      · simp [hr, hname.symm]
    · rename_i hm
      split
      · rename_i hm'
        cases hr : unmarshalHostKey ssh req.rest with
        | none => simp [hm', hname]
        | some h =>
            by_cases hh : h = ssh.marshal hostKey
            · simp [hh, hm']
            · simp [hh, hm', hname]
      · rename_i hm'
        simp [hm, hm']

/-- The checks pass exactly on the reading of a payload for the expected user,
key and host. -/
theorem validateParsedUserAuth_toSignData_eq_ok_iff {w : Reading} {user : GoString}
    {key hostKey : Key} :
    validateParsedUserAuth ssh w.toSignData user (some key) hostKey = .ok () ↔
      ∃ (p : UserAuthPayload) (flag : UInt8), flag ≠ 0 ∧ w = p.reading flag ∧
        p.IsFor w.session.val user (ssh.marshal key) (ssh.marshal hostKey) := by
  rw [validateParsedUserAuth_eq_ok_iff]
  constructor
  · rintro ⟨hu, hv, hs, hk, hm⟩
    have hf : w.flag ≠ 0 := by simpa [Reading.toSignData] using hs
    have hv' : w.service = sshConnection := SshString.ext hv
    rcases hm with ⟨hm, hr⟩ | ⟨hm, hr⟩
    · have hm' : w.method = publickey := SshString.ext hm
      have hr' : w.rest = [] := hr
      refine ⟨⟨w.session, w.user, .publickey, w.algorithm, w.publicKey⟩, w.flag, hf, ?_,
        rfl, hu, hk, by simp⟩
      cases w
      simp_all [UserAuthPayload.reading, PublicKeyMethod.name, PublicKeyMethod.tail]
    · have hm' : w.method = publickeyHostbound := SshString.ext hm
      obtain ⟨h, hr', hh⟩ := (unmarshalHostKey_eq_some_iff ssh).mp hr
      have hr'' : w.rest = putString h := hr'
      refine ⟨⟨w.session, w.user, .hostbound h, w.algorithm, w.publicKey⟩, w.flag, hf, ?_,
        rfl, hu, hk, ?_⟩
      · cases w
        simp_all [UserAuthPayload.reading, PublicKeyMethod.name, PublicKeyMethod.tail]
      · rintro _ ⟨⟩
        exact hh
  · rintro ⟨p, flag, hf, rfl, -, hu, hk, hm⟩
    refine ⟨hu, rfl, by simpa [Reading.toSignData, UserAuthPayload.reading] using hf, hk, ?_⟩
    cases hp : p.method with
    | publickey =>
        refine Or.inl ⟨?_, ?_⟩ <;>
          simp [Reading.toSignData, UserAuthPayload.reading, hp, PublicKeyMethod.name,
            PublicKeyMethod.tail, publickey]
    | hostbound h =>
        refine Or.inr ⟨?_, (unmarshalHostKey_eq_some_iff ssh).mpr ⟨h, ?_, hm h hp⟩⟩ <;>
          simp [Reading.toSignData, UserAuthPayload.reading, hp, PublicKeyMethod.name,
            PublicKeyMethod.tail, publickeyHostbound]

/-- The data is a public-key user-authentication request of the grammar, for
this session, user, key and host. -/
def IsUserAuthRequest (data session user publicKey hostKey : Bytes) : Prop :=
  ∃ (p : UserAuthPayload) (flag : UInt8), flag ≠ 0 ∧ p.IsFor session user publicKey hostKey ∧
    data = p.encode flag

/-- The data has the fields of such a request but no message number, and the
first layout, which looks for one, does not read it. -/
def IsUntypedRequest (data session user publicKey hostKey : Bytes) : Prop :=
  readsAsGo ssh data = none ∧
    ∃ (p : UserAuthPayload) (flag : UInt8), flag ≠ 0 ∧ p.IsFor session user publicKey hostKey ∧
      data = p.encodeUntyped flag

/-- The validator accepts the requests of the grammar and the untyped ones. -/
theorem validateUserAuthSignData_eq_ok_iff {data session : Bytes} {user : GoString}
    {key hostKey : Key} :
    validateUserAuthSignData ssh data session user (some key) hostKey = .ok () ↔
      session ≠ [] ∧
        (IsUserAuthRequest data session user (ssh.marshal key) (ssh.marshal hostKey) ∨
          IsUntypedRequest ssh data session user (ssh.marshal key) (ssh.marshal hostKey)) := by
  constructor
  · intro h
    obtain ⟨req, hp, hrest⟩ := bind_eq_ok_iff.mp h
    obtain ⟨w, hs, rfl, hd⟩ := (parseUserAuthSignData_eq_ok_iff ssh).mp hp
    dsimp only at hrest
    split at hrest
    · exact nomatch hrest
    · next hse =>
        obtain ⟨p, flag, hf, rfl, hfor⟩ :=
          (validateParsedUserAuth_toSignData_eq_ok_iff ssh).mp hrest
        have hse' : (p.reading flag).session.val = session := not_not.mp hse
        rw [hse'] at hs hfor
        refine ⟨hs, ?_⟩
        rcases hd with hd | ⟨hg, hd⟩
        · exact Or.inl ⟨p, flag, hf, hfor, hd⟩
        · exact Or.inr ⟨hg, p, flag, hf, hfor, hd⟩
  · rintro ⟨hs, h⟩
    obtain ⟨p, flag, hf, hfor, hd⟩ : ∃ (p : UserAuthPayload) (flag : UInt8), flag ≠ 0 ∧
        p.IsFor session user (ssh.marshal key) (ssh.marshal hostKey) ∧
        (data = p.encode flag ∨ readsAsGo ssh data = none ∧ data = p.encodeUntyped flag) := by
      rcases h with ⟨p, flag, hf, hfor, hd⟩ | ⟨hg, p, flag, hf, hfor, hd⟩
      · exact ⟨p, flag, hf, hfor, Or.inl hd⟩
      · exact ⟨p, flag, hf, hfor, Or.inr ⟨hg, hd⟩⟩
    have hse : (p.reading flag).session.val = session := hfor.1
    have hp := (parseUserAuthSignData_eq_ok_iff ssh).mpr
      ⟨p.reading flag, by rw [hse]; exact hs, rfl, hd⟩
    have hv := (validateParsedUserAuth_toSignData_eq_ok_iff ssh (w := p.reading flag)).mpr
      ⟨p, flag, hf, rfl, by rw [hse]; exact hfor⟩
    have hse' : (p.reading flag).toSignData.sessionID = session := hse
    simp [validateUserAuthSignData, hp, bind, Except.bind, hse', hv]

/-! ## Unambiguity -/

/-- A request has one reading. -/
theorem Reading.encodeRequest_inj {w w' : Reading} (hs : w.session = w'.session)
    (h : w.encodeRequest = w'.encodeRequest) : w = w' := by
  obtain ⟨hu, h⟩ := putString_append_inj.mp h
  obtain ⟨hv, h⟩ := putString_append_inj.mp h
  obtain ⟨hm, h⟩ := putString_append_inj.mp h
  obtain ⟨hf, h⟩ := List.cons.inj h
  obtain ⟨ha, h⟩ := putString_append_inj.mp h
  obtain ⟨hk, hr⟩ := putString_append_inj.mp h
  cases w
  cases w'
  simp_all

/-- A payload is determined by its reading. -/
theorem UserAuthPayload.reading_inj {p p' : UserAuthPayload} {flag flag' : UInt8}
    (h : p.reading flag = p'.reading flag') : p = p' := by
  have hname : publickey ≠ publickeyHostbound := by
    intro hc
    exact absurd (congrArg SshString.val hc) (by decide)
  simp only [UserAuthPayload.reading, Reading.mk.injEq] at h
  obtain ⟨hs, hu, -, hm, -, ha, hk, ht⟩ := h
  have hmethod : p.method = p'.method := by
    cases hp : p.method with
    | publickey =>
        cases hp' : p'.method with
        | publickey => rfl
        | hostbound h' =>
            rw [hp, hp'] at hm
            exact absurd hm hname
    | hostbound k =>
        cases hp' : p'.method with
        | publickey =>
            rw [hp, hp'] at hm
            exact absurd hm.symm hname
        | hostbound k' =>
            rw [hp, hp'] at ht
            simp only [PublicKeyMethod.tail] at ht
            rw [← List.append_nil (putString k), ← List.append_nil (putString k')] at ht
            rw [(putString_append_inj.mp ht).1]
  cases p
  cases p'
  simp_all

/-- A payload is determined by its bytes. -/
theorem UserAuthPayload.encode_inj {p p' : UserAuthPayload} {flag flag' : UInt8}
    (h : p.encode flag = p'.encode flag') : p = p' := by
  obtain ⟨hs, h⟩ := putString_append_inj.mp h
  have hr : (p.reading flag).encodeRequest = (p'.reading flag').encodeRequest :=
    (List.cons.inj h).2
  exact UserAuthPayload.reading_inj (Reading.encodeRequest_inj hs hr)

/-- The first layout reads every payload that names a session. -/
theorem readsAsGo_encode {p : UserAuthPayload} (hs : p.session.val ≠ []) (flag : UInt8) :
    readsAsGo ssh (p.encode flag) ≠ none := by
  have hg : readsAsGo ssh (p.encode flag) = some _ :=
    (readsAsGo_eq_some_iff ssh).mpr ⟨p.reading flag, hs, rfl, rfl⟩
  rw [hg]
  simp

/-- **No second meaning.**  Bytes the validator accepts, by either layout, are
the payload of no other session, user, key or bound host. -/
theorem validateUserAuthSignData_unambiguous (data session : Bytes) (user : GoString)
    (key hostKey : Key)
    (h : validateUserAuthSignData ssh data session user (some key) hostKey = .ok ())
    (p : UserAuthPayload) (hp : data = p.encode 1) :
    p.IsFor session user (ssh.marshal key) (ssh.marshal hostKey) := by
  obtain ⟨hs, ⟨q, flag, -, hfor, hd⟩ | ⟨hg, q, flag, -, hfor, hd⟩⟩ :=
    (validateUserAuthSignData_eq_ok_iff ssh).mp h
  · rw [UserAuthPayload.encode_inj (hp.symm.trans hd)]
    exact hfor
  · -- the untyped bytes begin with the session id too, so the payload names it
    have hsession : p.session = q.session :=
      (putString_append_inj.mp (hp.symm.trans hd)).1
    have hne : p.session.val ≠ [] := by rw [hsession, hfor.1]; exact hs
    exact absurd (hp ▸ hg) (readsAsGo_encode ssh hne 1)

/-- A request by `deploy` in the session `[1]` with the key `[7]`. -/
def deployPayload : UserAuthPayload where
  session := ⟨[1], by decide⟩
  user := ⟨str "deploy", by decide⟩
  method := .publickey
  algorithm := ⟨str "ssh-ed25519", by decide⟩
  publicKey := ⟨[7], by decide⟩

theorem validateUserAuthSignData_unambiguous_deploy :
    deployPayload.IsFor [1] (str "deploy") [7] [9] :=
  validateUserAuthSignData_unambiguous Package.plain (deployPayload.encode 1) [1] (str "deploy")
    [7] [9] (by decide) deployPayload rfl

/-- A payload of the grammar is never an untyped request. -/
theorem IsUserAuthRequest.not_isUntypedRequest {data session user publicKey hostKey : Bytes}
    (hs : session ≠ []) (h : IsUserAuthRequest data session user publicKey hostKey) :
    ¬ IsUntypedRequest ssh data session user publicKey hostKey := by
  rintro ⟨hg, -⟩
  obtain ⟨p, flag, -, hfor, rfl⟩ := h
  exact readsAsGo_encode ssh (by rw [hfor.1]; exact hs) flag hg

/-- **The grammar, up to the untyped layout.**  The validator decides the
grammar on exactly the bytes that are not an untyped request. -/
theorem validateUserAuthSignData_decides_iff (data session : Bytes) (hs : session ≠ [])
    (user : GoString) (key hostKey : Key) :
    (validateUserAuthSignData ssh data session user (some key) hostKey = .ok () ↔
        IsUserAuthRequest data session user (ssh.marshal key) (ssh.marshal hostKey)) ↔
      ¬ IsUntypedRequest ssh data session user (ssh.marshal key) (ssh.marshal hostKey) := by
  rw [validateUserAuthSignData_eq_ok_iff]
  constructor
  · intro h hu
    exact (h.mp ⟨hs, Or.inr hu⟩).not_isUntypedRequest ssh hs hu
  · intro hu
    constructor
    · rintro ⟨-, h | h⟩
      · exact h
      · exact absurd h hu
    · exact fun h ↦ ⟨hs, Or.inl h⟩

theorem validateUserAuthSignData_decides_deploy :
    validateUserAuthSignData Package.plain (deployPayload.encode 1) [1] (str "deploy") (some [7])
        [9] = .ok () ↔
      IsUserAuthRequest (deployPayload.encode 1) [1] (str "deploy") [7] [9] :=
  (validateUserAuthSignData_decides_iff Package.plain (deployPayload.encode 1) [1] (by decide)
    (str "deploy") [7] [9]).mpr (fun h ↦ absurd h.1 (by decide))

/-- The deploy request without its message number is accepted, and is no
request of the grammar. -/
theorem validateUserAuthSignData_accepts_untyped :
    ¬ (validateUserAuthSignData Package.plain (deployPayload.encodeUntyped 1) [1] (str "deploy")
          (some [7]) [9] = .ok () ↔
        IsUserAuthRequest (deployPayload.encodeUntyped 1) [1] (str "deploy") [7] [9]) := by
  intro h
  have hreq := h.mp (by decide)
  exact hreq.not_isUntypedRequest Package.plain (by decide)
    ⟨by decide, deployPayload, 1, by decide, ⟨rfl, rfl, rfl, by simp [deployPayload]⟩, rfl⟩

end LunaZTrust.Auth
