import WzonePortal.CredentialCipher

/-! Which key a provider encrypts with, and the exceptions that a stored token can end in. The
legacy keys are written into the map after the current one, and the text of a password is decoded
behind the handler of `decrypt`. -/
namespace WzonePortal

def EnvKeyProvider.single (version : ℤ) (key : Key) : EnvKeyProvider := ⟨[(version,key)],version⟩

/-- The last legacy entry for the current version, if there is one, holds this key. -/
def KeySettings.CurrentKeyIs (toAscii : Char → Char) (settings : KeySettings) (current : Key) :
    Prop :=
  ∀ before entry after, settings.credentialLegacyKeys = before ++ entry::after →
    IsVersion toAscii settings.credentialKeyVersion entry →
    (∀ e ∈ after, ¬ IsVersion toAscii settings.credentialKeyVersion e) →
      decodeKey entry.2 = .ok current

section
variable {toAscii : Char → Char}

theorem none_or_last {α : Type} (P : α → Prop) (l : List α) :
    (∀ e ∈ l, ¬ P e) ∨ ∃ before entry after, l = before ++ entry::after ∧ P entry ∧
      ∀ e ∈ after, ¬ P e := by
  induction l with
  | nil => exact .inl fun e he => by cases he
  | cons a l ih =>
    rcases ih with hnone | ⟨before,entry,after,rfl,hentry,hafter⟩
    · by_cases ha : P a
      · exact .inr ⟨[],a,l,rfl,ha,hnone⟩
      · exact .inl (List.forall_mem_cons.mpr ⟨ha,hnone⟩)
    · exact .inr ⟨a::before,entry,after,rfl,hentry,hafter⟩

theorem EnvKeyProvider.exists_key {before after : List (String × String)} {entry : String × String}
    {keys all : List (ℤ × Key)}
    (h : addLegacyKeys toAscii (before ++ entry::after) keys = .ok all) :
    ∃ key, decodeKey entry.2 = .ok key := by
  rw [addLegacyKeys_append] at h
  cases hbefore : addLegacyKeys toAscii before keys with
  | error e => rw [hbefore] at h; cases h
  | ok keys' =>
    rw [hbefore] at h
    obtain ⟨_,key,hkey,_⟩ := addLegacyKeys_cons h
    exact ⟨key,hkey⟩

/-- The key under the current version is the last one that was written there. -/
theorem EnvKeyProvider.getKey_current_iff {settings : KeySettings} {provider : EnvKeyProvider}
    (hinit : init toAscii settings = .ok provider) {current : Key}
    (hcurrent : decodeKey settings.credentialEncryptionKey = .ok current) :
    provider.getKey provider.currentVersion = .ok current ↔
      settings.CurrentKeyIs toAscii current := by
  obtain ⟨key,hkey,hkeys,hversion⟩ := init_eq_ok hinit
  obtain rfl : key = current := Except.ok.inj (hkey.symm.trans hcurrent)
  have hlast : ∀ before entry after, settings.credentialLegacyKeys = before ++ entry::after →
      IsVersion toAscii settings.credentialKeyVersion entry →
      (∀ e ∈ after, ¬ IsVersion toAscii settings.credentialKeyVersion e) → ∃ last,
        decodeKey entry.2 = .ok last ∧ provider.getKey provider.currentVersion = .ok last := by
    intro before entry after hlegacy hentry hafter
    rw [hlegacy] at hkeys
    obtain ⟨last,hdecode⟩ := exists_key hkeys
    have hlookup := lookup_of_last hentry hdecode hafter hkeys
    exact ⟨last,hdecode,by rw [getKey,hversion,hlookup]⟩
  constructor
  · intro hget before entry after hlegacy hentry hafter
    obtain ⟨last,hdecode,hlookup⟩ := hlast before entry after hlegacy hentry hafter
    rw [hdecode,Except.ok.inj (hlookup.symm.trans hget)]
  · intro hagrees
    rcases none_or_last (IsVersion toAscii settings.credentialKeyVersion)
      settings.credentialLegacyKeys with hnone | ⟨before,entry,after,hlegacy,hentry,hafter⟩
    · have hlookup := lookup_of_not_isVersion hnone hkeys
      rw [List.lookup_cons,beq_self_eq_true] at hlookup
      rw [getKey,hversion,hlookup]
    · obtain ⟨last,hdecode,hlookup⟩ := hlast before entry after hlegacy hentry hafter
      have hsame := hagrees before entry after hlegacy hentry hafter
      rw [hlookup,Except.ok.inj (hdecode.symm.trans hsame)]

namespace CredentialCipher

variable {provider other : EnvKeyProvider} {key : Key}

theorem encrypt_congr (aesgcm : Aesgcm) (hversion : provider.currentVersion = other.currentVersion)
    (hkey : provider.getKey provider.currentVersion = other.getKey other.currentVersion)
    (nonce : Nonce) (password : String) :
    encrypt aesgcm provider nonce password = encrypt aesgcm other nonce password := by
  unfold encrypt
  rw [hkey,hversion]

def telling (key : Key) : Aesgcm where
  encrypt k _ _ := if k = key then .error .overflowError else .error .invalidTag
  decrypt _ _ _ := .error .invalidTag

theorem telling_decryptInvertsEncrypt (key : Key) : (telling key).DecryptInvertsEncrypt := by
  intro k nonce data ct h
  simp only [telling] at h
  split at h <;> cases h

theorem encrypt_telling {nonce : Nonce} {password : String} :
    encrypt (telling key) provider nonce password = .error .overflowError ↔
      provider.getKey provider.currentVersion = .ok key := by
  unfold encrypt
  cases hget : provider.getKey provider.currentVersion with
  | error e =>
    have he : e ≠ .overflowError := by
      rintro rfl
      unfold EnvKeyProvider.getKey at hget
      split at hget <;> cases hget
    simpa [bind,Except.bind] using he
  | ok k =>
    by_cases hk : k = key
    · simp [telling,bind,Except.bind,hk]
    · simp [telling,bind,Except.bind,hk]

end CredentialCipher

theorem EnvKeyProvider.getKey_single (version : ℤ) (key : Key) :
    (single version key).getKey version = .ok key := by
  rw [getKey,single,List.lookup_cons,beq_self_eq_true]

end

/-- The tokens are those of the current key, and can be read with that key alone, exactly if no
legacy entry has put another key in its place. -/
theorem current_key_used_iff (toAscii : Char → Char) (settings : KeySettings)
    (provider : EnvKeyProvider) (hinit : EnvKeyProvider.init toAscii settings = .ok provider)
    (current : Key) (hcurrent : decodeKey settings.credentialEncryptionKey = .ok current) :
    (∀ aesgcm : Aesgcm, aesgcm.DecryptInvertsEncrypt → ∀ nonce password,
      CredentialCipher.encrypt aesgcm provider nonce password =
        CredentialCipher.encrypt aesgcm (.single settings.credentialKeyVersion current) nonce
          password ∧
      ∀ token, CredentialCipher.encrypt aesgcm provider nonce password = .ok token →
        CredentialCipher.decrypt aesgcm toAscii (.single settings.credentialKeyVersion current)
          token = .ok password) ↔ settings.CurrentKeyIs toAscii current := by
  obtain ⟨_,_,_,hversion⟩ := EnvKeyProvider.init_eq_ok hinit
  have hsingle := EnvKeyProvider.getKey_single settings.credentialKeyVersion current
  rw [← EnvKeyProvider.getKey_current_iff hinit hcurrent]
  constructor
  · intro h
    have hsame := (h _ (CredentialCipher.telling_decryptInvertsEncrypt current) recordedNonce "").1
    exact CredentialCipher.encrypt_telling.mp
      (hsame.trans (CredentialCipher.encrypt_telling.mpr hsingle))
  · intro hget aesgcm haesgcm nonce password
    refine ⟨CredentialCipher.encrypt_congr aesgcm hversion (hget.trans hsingle.symm) nonce password,
      fun token htoken => CredentialCipher.decrypt_encrypt haesgcm (fun key hkey => ?_) htoken⟩
    obtain rfl := Except.ok.inj (hget.symm.trans hkey)
    rw [hversion]
    exact hsingle

/-- The first key is the current one, and the second a retired one under another version. -/
def retiredSecond : KeySettings :=
  { firstSettings with credentialLegacyKeys := [("2",String.ofList (Base64.encode secondKey.val))] }

/-- The second key is the current one, and the first a retired one under the same version. -/
def retiredFirst : KeySettings where
  credentialEncryptionKey := String.ofList (Base64.encode secondKey.val)
  credentialLegacyKeys := [("1",String.ofList (Base64.encode firstKey.val))]

theorem retiredSecond_init :
    EnvKeyProvider.init id retiredSecond = .ok ⟨[(2,secondKey),(1,firstKey)],1⟩ := by
  have hversion : intOfStr id "2".toList = some 2 := by decide
  unfold EnvKeyProvider.init
  simp only [retiredSecond,firstSettings,decodeKey_encode,EnvKeyProvider.addLegacyKeys,hversion]
  rfl

theorem retiredFirst_init :
    EnvKeyProvider.init id retiredFirst = .ok ⟨[(1,firstKey),(1,secondKey)],1⟩ := by
  have hversion : intOfStr id "1".toList = some 1 := by decide
  unfold EnvKeyProvider.init
  simp only [retiredFirst,decodeKey_encode,EnvKeyProvider.addLegacyKeys,hversion]
  rfl

theorem retiredSecond_currentKeyIs : retiredSecond.CurrentKeyIs id firstKey := by
  have hversion : intOfStr id "2".toList = some 2 := by decide
  intro before entry after hlegacy hentry _
  have hmem : entry ∈ retiredSecond.credentialLegacyKeys := by
    rw [hlegacy]
    exact List.mem_append_right _ List.mem_cons_self
  obtain rfl := List.mem_singleton.mp hmem
  exact absurd (hversion.symm.trans hentry) (by decide)

/-- The recorded token was written beside a retired key of another version. -/
theorem current_key_used_sample :
    CredentialCipher.decrypt recordedAesgcm id (.single 1 firstKey) recordedToken =
      .ok "SuperSecret!234" := by
  have hsame : CredentialCipher.encrypt recordedAesgcm ⟨[(2,secondKey),(1,firstKey)],1⟩
      recordedNonce "SuperSecret!234" = CredentialCipher.encrypt recordedAesgcm firstProvider
      recordedNonce "SuperSecret!234" := CredentialCipher.encrypt_congr recordedAesgcm rfl rfl _ _
  exact ((current_key_used_iff id retiredSecond _ retiredSecond_init firstKey
    (decodeKey_encode firstKey)).mpr retiredSecond_currentKeyIs recordedAesgcm
    recordedAesgcm_decryptInvertsEncrypt recordedNonce "SuperSecret!234").2 _
    (hsame.trans encrypt_recorded)

/-- A retired key under the current version encrypts in place of the current key. -/
theorem retired_key_encrypts :
    EnvKeyProvider.init id retiredFirst = .ok ⟨[(1,firstKey),(1,secondKey)],1⟩ ∧
    decodeKey retiredFirst.credentialEncryptionKey = .ok secondKey ∧
    CredentialCipher.encrypt recordedAesgcm ⟨[(1,firstKey),(1,secondKey)],1⟩ recordedNonce
      "SuperSecret!234" = .ok recordedToken ∧
    CredentialCipher.decrypt recordedAesgcm id (.single 1 secondKey) recordedToken =
      .error (.portalError "자격증명을 복호화할 수 없습니다.") := by
  have hsame : CredentialCipher.encrypt recordedAesgcm ⟨[(1,firstKey),(1,secondKey)],1⟩
      recordedNonce "SuperSecret!234" = CredentialCipher.encrypt recordedAesgcm firstProvider
      recordedNonce "SuperSecret!234" := CredentialCipher.encrypt_congr recordedAesgcm rfl rfl _ _
  exact ⟨retiredFirst_init,decodeKey_encode secondKey,hsame.trans encrypt_recorded,
    by decide +kernel⟩

namespace CredentialCipher

/-- Wherever the token opens, the plaintext is text. -/
def OpensToText (aesgcm : Aesgcm) (toAscii : Char → Char) (keys : EnvKeyProvider)
    (stored : String) : Prop :=
  ∀ version nonce ct v key n c plain, splitMax '$' 2 stored.toList = [version,nonce,ct] →
    intOfStr toAscii version = some v → keys.getKey v = .ok key → unb64 nonce = some n →
    unb64 ct = some c → aesgcm.decrypt key n c = .ok plain →
      (String.fromUTF8? ⟨plain.toArray⟩).isSome = true

section
variable {aesgcm : Aesgcm} {toAscii : Char → Char} {keys : EnvKeyProvider} {stored : String}

/-- A token that opens has its three parts, its version among the keys, and its bytes. -/
theorem openToken_eq_ok {plain : List UInt8} :
    openToken aesgcm toAscii keys stored = .ok plain ↔
      ∃ version nonce ct v key n c, splitMax '$' 2 stored.toList = [version,nonce,ct] ∧
        intOfStr toAscii version = some v ∧ keys.getKey v = .ok key ∧ unb64 nonce = some n ∧
        unb64 ct = some c ∧ aesgcm.decrypt key n c = .ok plain := by
  constructor
  · intro h
    unfold openToken at h
    split at h
    · rename_i version nonce ct hsplit
      cases hv : intOfStr toAscii version with
      | none => simp only [hv,orValueError,bind,Except.bind] at h; cases h
      | some v =>
        cases hkey : keys.getKey v with
        | error e => simp only [hv,hkey,orValueError,bind,Except.bind] at h; cases h
        | ok key =>
          cases hn : unb64 nonce with
          | none => simp only [hv,hkey,hn,orValueError,bind,Except.bind] at h; cases h
          | some n =>
            cases hc : unb64 ct with
            | none => simp only [hv,hkey,hn,hc,orValueError,bind,Except.bind] at h; cases h
            | some c =>
              simp only [hv,hkey,hn,hc,orValueError,bind,Except.bind] at h
              exact ⟨version,nonce,ct,v,key,n,c,hsplit,hv,hkey,hn,hc,h⟩
    · cases h
  · rintro ⟨version,nonce,ct,v,key,n,c,hsplit,hv,hkey,hn,hc,hplain⟩
    unfold openToken
    rw [hsplit]
    simp only [hv,hkey,hn,hc,orValueError,bind,Except.bind,hplain]

/-- The cipher's primitive fails in the two ways that the handler knows. -/
def FailsAsDocumented (aesgcm : Aesgcm) : Prop :=
  ∀ key nonce ct e, aesgcm.decrypt key nonce ct = .error e → e = .valueError ∨ e = .invalidTag

theorem isCaught_of_openToken (haead : FailsAsDocumented aesgcm) {e : CipherExc}
    (h : openToken aesgcm toAscii keys stored = .error e) : isCaught e = true := by
  unfold openToken at h
  split at h
  · rename_i version nonce ct hsplit
    cases hv : intOfStr toAscii version with
    | none => simp only [hv,orValueError,bind,Except.bind] at h; cases h; rfl
    | some v =>
      cases hkey : keys.getKey v with
      | error e' =>
        simp only [hv,hkey,orValueError,bind,Except.bind] at h
        obtain rfl := Except.error.inj h
        unfold EnvKeyProvider.getKey at hkey
        split at hkey <;> cases hkey
        rfl
      | ok key =>
        cases hn : unb64 nonce with
        | none => simp only [hv,hkey,hn,orValueError,bind,Except.bind] at h; cases h; rfl
        | some n =>
          cases hc : unb64 ct with
          | none => simp only [hv,hkey,hn,hc,orValueError,bind,Except.bind] at h; cases h; rfl
          | some c =>
            simp only [hv,hkey,hn,hc,orValueError,bind,Except.bind] at h
            rcases haead _ _ _ _ h with rfl | rfl <;> rfl
  · cases h
    rfl

theorem opensToText_iff : OpensToText aesgcm toAscii keys stored ↔
    ∀ plain, openToken aesgcm toAscii keys stored = .ok plain →
      (String.fromUTF8? ⟨plain.toArray⟩).isSome = true := by
  constructor
  · intro h plain hplain
    obtain ⟨version,nonce,ct,v,key,n,c,hsplit,hv,hkey,hn,hc,hdecrypt⟩ := openToken_eq_ok.mp hplain
    exact h version nonce ct v key n c plain hsplit hv hkey hn hc hdecrypt
  · intro h version nonce ct v key n c plain hsplit hv hkey hn hc hdecrypt
    exact h plain (openToken_eq_ok.mpr ⟨version,nonce,ct,v,key,n,c,hsplit,hv,hkey,hn,hc,hdecrypt⟩)

end
end CredentialCipher

/-- A password comes back or the portal's own error is raised, exactly if the plaintext of a token
that opens is text. -/
theorem decrypt_contract_iff (aesgcm : Aesgcm) (haead : CredentialCipher.FailsAsDocumented aesgcm)
    (toAscii : Char → Char) (keys : EnvKeyProvider) (stored : String) :
    ((∃ password, CredentialCipher.decrypt aesgcm toAscii keys stored = .ok password) ∨
      ∃ message, CredentialCipher.decrypt aesgcm toAscii keys stored =
        .error (.portalError message)) ↔
      CredentialCipher.OpensToText aesgcm toAscii keys stored := by
  rw [CredentialCipher.opensToText_iff]
  unfold CredentialCipher.decrypt
  cases hopen : CredentialCipher.openToken aesgcm toAscii keys stored with
  | error e => simp [CredentialCipher.isCaught_of_openToken haead hopen]
  | ok plain => cases htext : String.fromUTF8? ⟨plain.toArray⟩ with
    | none => simp [htext]
    | some password => simp [htext]

theorem recordedAesgcm_failsAsDocumented :
    CredentialCipher.FailsAsDocumented recordedAesgcm := by
  intro key nonce ct e h
  simp only [recordedAesgcm] at h
  split at h
  · cases h
  · exact .inr (Except.error.inj h).symm

/-- The recorded token opens to the text of its password. -/
theorem decrypt_contract_sample :
    CredentialCipher.OpensToText recordedAesgcm id firstProvider recordedToken :=
  (decrypt_contract_iff recordedAesgcm recordedAesgcm_failsAsDocumented id firstProvider
    recordedToken).mp (.inl ⟨"SuperSecret!234",by decide +kernel⟩)

/-- The ciphertext of a single byte that begins no character, under the first key. -/
def byteAesgcm : Aesgcm where
  encrypt k n d :=
    if k = firstKey ∧ n = recordedNonce.val ∧ d = [255] then
      .ok [149,66,118,1,182,79,55,148,165,169,207,160,63,194,212,18,30]
    else .error .overflowError
  decrypt k n ct :=
    if k = firstKey ∧ n = recordedNonce.val ∧
        ct = [149,66,118,1,182,79,55,148,165,169,207,160,63,194,212,18,30] then .ok [255]
    else .error .invalidTag

theorem byteAesgcm_failsAsDocumented : CredentialCipher.FailsAsDocumented byteAesgcm := by
  intro key nonce ct e h
  simp only [byteAesgcm] at h
  split at h
  · cases h
  · exact .inr (Except.error.inj h).symm

/-- A token of the right form and tag, whose plaintext is no text, ends in the decoder's error. -/
theorem undecodable_plaintext_escapes :
    CredentialCipher.FailsAsDocumented byteAesgcm ∧
    CredentialCipher.decrypt byteAesgcm id firstProvider
      "1$AAECAwQFBgcICQoL$lUJ2AbZPN5Slqc-gP8LUEh4=" = .error .unicodeDecodeError :=
  ⟨byteAesgcm_failsAsDocumented,by decide +kernel⟩

end WzonePortal
