import WzonePortal.AccountCommits

/-! A password reset beside logins and password changes of the same account. Each of them
verifies a hash that it has read and then writes unconditionally; while those commits that
write the hash find the one they have read, the temporary password stays the only one. -/
namespace WzonePortal

open Transaction ReadCommitted

inductive PasswordRequest
  | resetPassword (userId : UUID)
  | changePassword (current new : String)
  | login (username password : String)
  deriving DecidableEq, Repr

structure PasswordCall where
  ctx : Context
  request : PasswordRequest

namespace PasswordCall

/-- The route of a request; what it answers plays no part here. -/
def handler (env : Env) (c : PasswordCall) : Service Unit :=
  match c.request with
  | .resetPassword userId => do
    let _ ← Routes.resetPassword env c.ctx userId
    pure ()
  | .changePassword current new => do
    let _ ← Routes.changePassword env c.ctx current new
    pure ()
  | .login username password => do
    let _ ← Routes.login env c.ctx username password
    pure ()

def temporary (c : PasswordCall) : String := generateTemporaryPassword c.ctx

def resetHash (env : Env) (c : PasswordCall) : String := env.hashpw c.temporary c.ctx.salt

/-- A change of the user's password that gives `password` as the current one. -/
def presents (c : PasswordCall) (userId : UUID) (password : String) : Bool :=
  match c.ctx.cookie, c.request with
  | .valid claims, .changePassword current _ => claims.sub = userId && current = password
  | _, _ => false

end PasswordCall

def setsHash (userId : UUID) (ws : List Write) : Bool :=
  ws.any fun
    | .patchUser u p => u = userId && p.passwordHash.isSome
    | _ => false

theorem patched_passwordHash {userId : UUID} {ws : List Write} (h : setsHash userId ws = false)
    (row : UserRow) : (patched userId ws row).passwordHash = row.passwordHash := by
  induction ws generalizing row with
  | nil => rfl
  | cons w ws ih =>
    simp only [setsHash,List.any_cons,Bool.or_eq_false_iff] at h
    obtain ⟨hw,hrest⟩ := h
    cases w with
    | patchUser u p =>
      rw [patched,ih hrest]
      by_cases hu : u = userId
      · have hp : p.passwordHash = none := by simpa [hu] using hw
        simp [hu,UserPatch.apply,hp]
      · rw [if_neg hu]
    | _ => exact ih hrest row

/-- Why a call may write the password hash of a user. -/
def PasswordCall.Justifies (env : Env) (c : PasswordCall) (tx : Transaction) (userId : UUID) :
    Prop :=
  match c.request with
  | .resetPassword u => u = userId ∧
      ∀ row, (patched userId tx.pending row).passwordHash = c.resetHash env
  | .changePassword current _ => ∃ claims, c.ctx.cookie = .valid claims ∧ claims.sub = userId ∧
      ∃ row ∈ tx.read, row.userId = userId ∧
        (verifyPassword env c.ctx current row.passwordHash).1 = true
  | .login _ _ => ∃ row ∈ tx.read, row.userId = userId ∧ needsRehash row.passwordHash = true

/-- What holds of a password request when it commits. -/
structure HashSound (env : Env) (c : PasswordCall) (tx : Transaction) : Prop where
  own : ∃ userId, ∀ w ∈ tx.pending, AccountWrite userId w
  justified : ∀ userId, setsHash userId tx.pending = true → c.Justifies env tx userId
  reset : ∀ userId, c.request = .resetPassword userId → tx.pending ≠ [] →
    setsHash userId tx.pending = true ∨
      ∃ row ∈ tx.read, row.userId = userId ∧ row.passwordHash = c.resetHash env

theorem hashSound_of_pending_nil {env : Env} {c : PasswordCall} {tx : Transaction}
    (h : tx.pending = []) : HashSound env c tx := by
  refine ⟨⟨0,by simp [h]⟩,fun userId hs => ?_,fun _ _ hne => absurd h hne⟩
  rw [h] at hs
  cases hs

/-- The transaction has read a row and flushed changes of it only; it has assigned the
password hash only if `A` holds. -/
structure Transaction.Writing (tx : Transaction) (row : UserRow) (A : Prop) : Prop where
  read : row ∈ tx.read
  found : ∃ r, tx.find? row.userId = some r
  active : tx.inactive = false
  own : ∀ w ∈ tx.pending, AccountWrite row.userId w
  hash : ∀ userId, setsHash userId tx.pending = true → userId = row.userId ∧ A

section
variable {dbms : Dbms} {P : Transaction → Prop} {tx : Transaction} {row : UserRow} {A : Prop}
  {userId : UUID}

theorem Transaction.Loaded.writing (h : tx.Loaded userId row) (A : Prop) : tx.Writing row A := by
  obtain ⟨hread,hid⟩ := h.mem_read
  refine ⟨hread,⟨row,hid ▸ h.found⟩,h.active,by simp [h.pending],fun v hv => ?_⟩
  rw [h.pending] at hv
  cases hv

theorem setsHash_append (userId : UUID) (ws ws' : List Write) :
    setsHash userId (ws ++ ws') = (setsHash userId ws || setsHash userId ws') := List.any_append

theorem wp_assign_writing (h : tx.Writing row A) {patch : UserRow → UserPatch}
    (hpatch : ∀ r, (patch r).passwordHash = none ∨ A) {Q : Except Exc Unit → Transaction → Prop}
    (hok : ∀ tx', tx'.Writing row A → Q (.ok ()) tx') (herror : ∀ e, Q (.error e) .fail) :
    (UserRepository.assign row.userId patch).wp (exec dbms) (OnCommit P) Q tx := by
  obtain ⟨r,hr⟩ := h.found
  have hpending := flushed_pending_patchUser hr (patch r)
  refine wp_assign h.active hr (hok _ ⟨h.read,⟨_,find?_flushed_patchUser hr (patch r)⟩,h.active,?_,?_⟩)
    herror
  · intro w hw
    rw [hpending,List.mem_append,List.mem_singleton] at hw
    rcases hw with hw | rfl
    · exact h.own w hw
    · exact rfl
  · intro userId hs
    rw [hpending,setsHash_append,Bool.or_eq_true] at hs
    rcases hs with hs | hs
    · exact h.hash userId hs
    · rcases hpatch r with hnone | hA
      · simp [setsHash,UserPatch.changedFrom,hnone] at hs
      · simp only [setsHash,List.any_cons,List.any_nil,Bool.or_false,Bool.and_eq_true,
          decide_eq_true_eq] at hs
        exact ⟨hs.1.symm,hA⟩

theorem wp_record_writing (h : tx.Writing row A) {now : Timestamp} {event : AuditEvent}
    {Q : Except Exc Unit → Transaction → Prop} (hok : ∀ tx', tx'.Writing row A → Q (.ok ()) tx')
    (hfail : Q (.ok ()) .fail) :
    (AuditRepository.record now event).wp (exec dbms) (OnCommit P) Q tx := by
  refine wp_record h.active (hok _ ⟨h.read,h.found,h.active,?_,?_⟩) hfail
  · intro w hw
    rw [flushed_pending_insertAudit,List.mem_append,List.mem_singleton] at hw
    rcases hw with hw | rfl
    · exact h.own w hw
    · exact trivial
  · intro userId hs
    rw [flushed_pending_insertAudit,setsHash_append,Bool.or_eq_true] at hs
    rcases hs with hs | hs
    · exact h.hash userId hs
    · simp [setsHash] at hs

end

theorem needsRehash_of_verifyPassword {env : Env} {ctx : Context} {plain hashed newHash : String}
    (h : (verifyPassword env ctx plain hashed).2 = some newHash) : needsRehash hashed = true := by
  unfold verifyPassword at h
  split at h
  · cases h
  · split at h
    · cases h
    · split at h
      · rename_i hb
        simp only [Bool.and_eq_true] at hb
        exact hb.2
      · cases h

theorem hashPassword_ok {env : Env} {ctx : Context} {plain newHash : String}
    (h : hashPassword env ctx plain = .ok newHash) : newHash = env.hashpw plain ctx.salt := by
  unfold hashPassword at h
  split at h
  · exact (Except.ok.inj h).symm
  · cases h

section
variable {dbms : Dbms} {env : Env} {c : PasswordCall} {tx : Transaction} {row : UserRow}

theorem hashSound_of_writing (hc : ∀ userId, c.request ≠ .resetPassword userId) {A : Prop}
    (h : tx.Writing row A) (hA : A → c.Justifies env tx row.userId) : HashSound env c tx := by
  refine ⟨⟨row.userId,h.own⟩,fun userId hs => ?_,fun userId hreset _ => ?_⟩
  · obtain ⟨rfl,hAA⟩ := h.hash userId hs
    exact hA hAA
  · exact absurd hreset (hc userId)

/-- A login assigns the hash only to replace one of a lower cost. -/
theorem wp_login {username password : String} (hc : c.request = .login username password) :
    (AuthService.login env c.ctx username password).wp (exec dbms) (OnCommit (HashSound env c))
      (fun _ => HashSound env c) {} := by
  have hdone : ∀ (row : UserRow) (tx' : Transaction),
      tx'.Writing row (needsRehash row.passwordHash = true) → HashSound env c tx' := by
    intro row tx' h
    refine hashSound_of_writing (by simp [hc]) h fun hn => ?_
    unfold PasswordCall.Justifies
    rw [hc]
    exact ⟨row,h.read,rfl,hn⟩
  have hfail : HashSound env c .fail := hashSound_of_pending_nil rfl
  have haudit : ∀ (row : UserRow) (tx' : Transaction) (now : Timestamp) (event : AuditEvent),
      tx'.Writing row (needsRehash row.passwordHash = true) →
      (AuditRepository.record now event).wp (exec dbms) (OnCommit (HashSound env c))
        (fun _ => HashSound env c) tx' :=
    fun row tx' now event h => wp_record_writing h (hdone row) hfail
  refine Script.wp_seq (wp_findRow reading_empty _ (fun _ => hfail) ?_ fun row tx' hl => ?_)
  · refine Script.wp_bind (R:=fun _ => HashSound env c) ?_ (fun _ _ h => h) fun _ _ h => h
    refine wp_record rfl ⟨⟨0,?_⟩,fun userId hs => ?_,fun userId hreset _ => ?_⟩ hfail
    · simp [flushed_pending_insertAudit,AccountWrite]
    · simp [flushed_pending_insertAudit,setsHash] at hs
    · rw [hc] at hreset
      cases hreset
  · have hw := hl.writing (needsRehash row.passwordHash = true)
    dsimp only
    split
    · exact Script.wp_bind (haudit row tx' _ _ hw) (fun _ _ h => h) fun _ _ h => h
    · split
      · refine Script.wp_seq (wp_assign_writing hw (fun r => .inl ?_) (fun tx'' h => ?_) fun _ => hfail)
        · unfold UserRepository.failurePatch
          split <;> rfl
        · exact Script.wp_bind (haudit row tx'' _ _ h) (fun _ _ h => h) fun _ _ h => h
      · split
        · refine Script.wp_bind (haudit row tx' _ _ hw) (fun _ _ h => ?_) fun _ _ h => h
          cases statusMessage row.status <;> exact h
        · have hreset : ∀ tx'', tx''.Writing row (needsRehash row.passwordHash = true) →
              (do
                UserRepository.resetFailures c.ctx.now row.userId
                AuditRepository.record c.ctx.now
                  (AuthService.selfEvent env c.ctx .login (UserRepository.toAuthenticated row))
                pure (env.createAccessToken (UserRepository.toAuthenticated row) env.settings
                  c.ctx.now,UserRepository.toAuthenticated row) : Service _).wp (exec dbms)
                (OnCommit (HashSound env c)) (fun _ => HashSound env c) tx'' := by
            intro tx'' h
            refine Script.wp_seq (wp_assign_writing h (fun _ => .inl rfl) (fun tx₃ h₃ => ?_)
              fun _ => hfail)
            exact Script.wp_bind (haudit row tx₃ _ _ h₃) (fun _ _ h => h) fun _ _ h => h
          cases hn : (verifyPassword env c.ctx password row.passwordHash).2 with
          | none => exact hreset tx' hw
          | some newHash =>
            refine Script.wp_seq (wp_assign_writing hw (fun _ => .inr ?_) hreset fun _ => hfail)
            exact needsRehash_of_verifyPassword hn

theorem wp_changePassword {current new : String} (hc : c.request = .changePassword current new)
    {claims : TokenClaims} (hcookie : c.ctx.cookie = .valid claims) (h : tx.Reading)
    {user : AuthenticatedUser} (huser : user.userId = claims.sub) :
    (AuthService.changePassword env c.ctx user current new).wp (exec dbms)
      (OnCommit (HashSound env c)) (fun _ => HashSound env c) tx := by
  have hfail : HashSound env c .fail := hashSound_of_pending_nil rfl
  refine Script.wp_seq (wp_getRow h (hashSound_of_pending_nil h.pending) fun row tx' hl => ?_)
  obtain ⟨hread,hid⟩ := hl.mem_read
  have hidle : HashSound env c tx' := hashSound_of_pending_nil hl.pending
  refine Script.wp_seq (Script.wp_require (fun hverify => ?_) fun _ => hidle)
  refine wp_check (fun _ => ?_) fun _ => hidle
  refine Script.wp_seq (Script.wp_require (fun _ => ?_) fun _ => hidle)
  cases hhash : hashPassword env c.ctx new with
  | error e => exact hidle
  | ok newHash =>
    have hdone : ∀ tx'', tx''.Writing row True → HashSound env c tx'' := by
      intro tx'' hw
      refine hashSound_of_writing (by simp [hc]) hw fun _ => ?_
      unfold PasswordCall.Justifies
      rw [hc]
      exact ⟨claims,hcookie,huser.symm.trans hid.symm,row,hw.read,rfl,hverify⟩
    change (UserRepository.updateHash c.ctx.now user.userId newHash false >>= _).wp _ _ _ _
    rw [← hid]
    refine Script.wp_seq (wp_assign_writing (hl.writing True) (fun _ => .inr trivial)
      (fun tx'' hw => ?_) fun _ => hfail)
    exact wp_record_writing hw hdone hfail

theorem hashSound_of_reset {userId : UUID} (hc : c.request = .resetPassword userId)
    (hl : tx.Loaded userId row) {newHash : String} (hnew : newHash = c.resetHash env)
    {now : Timestamp} {event : AuditEventRow} :
    HashSound env c ((tx.flushed (.patchUser userId
      (UserRepository.hashPatch now newHash true))).flushed (.insertAudit event)) := by
  obtain ⟨hread,hid⟩ := hl.mem_read
  have hpending := flushed_pending_patchUser hl.found (UserRepository.hashPatch now newHash true)
  rw [hl.pending,List.nil_append] at hpending
  have hall : ((tx.flushed (.patchUser userId
      (UserRepository.hashPatch now newHash true))).flushed (.insertAudit event)).pending =
      [.patchUser userId ((UserRepository.hashPatch now newHash true).changedFrom row),
        .insertAudit event] := by
    rw [flushed_pending_insertAudit,hpending]
    rfl
  have hsets : ∀ v, setsHash v [.patchUser userId
      ((UserRepository.hashPatch now newHash true).changedFrom row),.insertAudit event] =
      decide (userId = v ∧ newHash ≠ row.passwordHash) := by
    intro v
    by_cases hsame : newHash = row.passwordHash <;>
      simp [setsHash,UserPatch.changedFrom,UserRepository.hashPatch,Option.filter,hsame]
  refine ⟨⟨userId,?_⟩,fun v hs => ?_,fun v hv _ => ?_⟩
  · rw [hall]
    simp [AccountWrite]
  · rw [hall,hsets,decide_eq_true_eq] at hs
    obtain ⟨rfl,hne⟩ := hs
    unfold PasswordCall.Justifies
    rw [hc]
    refine ⟨rfl,fun q => ?_⟩
    rw [hall]
    have hother : c.resetHash env ≠ row.passwordHash := hnew ▸ hne
    simp [patched,UserPatch.changedFrom,UserRepository.hashPatch,Option.filter,UserPatch.apply,
      hnew,hother]
  · rw [hc] at hv
    cases hv
    by_cases hsame : newHash = row.passwordHash
    · exact .inr ⟨row,hread,hid,hsame.symm.trans hnew⟩
    · exact .inl (by rw [hall,hsets,decide_eq_true_eq]; exact ⟨rfl,hsame⟩)

theorem wp_resetPassword {userId : UUID} (hc : c.request = .resetPassword userId) (h : tx.Reading)
    (actor : AccessScope) :
    (UserAdminService.resetPassword env c.ctx actor userId).wp (exec dbms)
      (OnCommit (HashSound env c)) (fun _ => HashSound env c) tx := by
  have hfail : HashSound env c .fail := hashSound_of_pending_nil rfl
  refine wp_checkedUser h (fun row tx' hl => ?_) fun _ => hashSound_of_pending_nil h.pending
  have hidle : HashSound env c tx' := hashSound_of_pending_nil hl.pending
  cases hhash : hashPassword env c.ctx (generateTemporaryPassword c.ctx) with
  | error e =>
    dsimp only
    rw [hhash]
    exact hidle
  | ok newHash =>
    dsimp only
    rw [hhash]
    change (UserRepository.updateHash c.ctx.now userId newHash true >>= _).wp _ _ _ _
    refine Script.wp_seq (wp_assign hl.active hl.found ?_ fun _ => hfail)
    refine Script.wp_bind (R:=fun _ => HashSound env c) ?_ (fun _ _ h => h) fun _ _ h => h
    exact wp_record hl.active (hashSound_of_reset hc hl (hashPassword_ok hhash)) hfail

/-- Whatever happens between its statements, a password request commits only soundly. -/
theorem wp_passwordHandler (env : Env) (c : PasswordCall) :
    (getDb (c.handler env)).wp (exec dbms) (OnCommit (HashSound env c)) (fun _ _ => True) {} := by
  have hnil : ∀ tx' : Transaction, tx'.pending = [] → HashSound env c tx' :=
    fun _ h => hashSound_of_pending_nil h
  have hcommit : ∀ {α : Type} {tx' : Transaction} {f : Unit → Service α}, HashSound env c tx' →
      (∀ tx'', tx''.pending = [] → (f ()).wp (exec dbms) (OnCommit (HashSound env c))
        (fun _ => HashSound env c) tx'') →
      (commit >>= f).wp (exec dbms) (OnCommit (HashSound env c)) (fun _ => HashSound env c) tx' :=
    fun h hf => Script.wp_seq (wp_commit h h hnil hf fun _ _ h'' => h'')
  refine wp_getDb hnil ?_
  unfold PasswordCall.handler
  cases hc : c.request with
  | resetPassword userId =>
    refine Script.wp_bind (R:=fun _ => HashSound env c) ?_ (fun _ _ h => h) fun _ _ h => h
    refine Script.wp_bind (wp_authorize reading_empty c.ctx _ _) (fun scope tx' h' => ?_)
      fun _ _ h' => hnil _ h'.pending
    refine Script.wp_bind (wp_resetPassword hc h' scope) (fun temporary tx'' h'' => ?_)
      fun _ _ h'' => h''
    exact hcommit h'' hnil
  | changePassword current new =>
    refine Script.wp_bind (R:=fun _ => HashSound env c) ?_ (fun _ _ h => h) fun _ _ h => h
    refine Script.wp_bind (wp_getCurrentUser reading_empty c.ctx.cookie) (fun user tx' h' => ?_)
      fun _ _ h' => hnil _ h'.1.pending
    obtain ⟨claims,hcookie,hid⟩ := h'.2 user rfl
    refine Script.wp_seq (wp_liftExcept ?_)
    cases hactive : Deps.getActiveUser "/api/v1/auth/change-password" user with
    | error e => exact hnil _ h'.1.pending
    | ok active =>
      have hsame : active = user := by
        unfold Deps.getActiveUser at hactive
        split at hactive <;> cases hactive
        rfl
      refine Script.wp_bind (wp_changePassword hc hcookie h'.1 (hsame ▸ hid))
        (fun _ tx'' h'' => ?_) fun _ _ h'' => h''
      exact hcommit h'' hnil
  | login username password =>
    refine Script.wp_bind (R:=fun _ => HashSound env c) ?_ (fun _ _ h => h) fun _ _ h => h
    refine Script.wp_bind (wp_login hc) (fun answer tx' h' => ?_) fun _ _ h' => h'
    refine hcommit h' fun tx'' hidle => ?_
    refine Script.wp_bind (wp_ask_idle (Q:=fun _ tx₃ => tx₃.pending = []) hidle _ fun _ _ h => h)
      (fun found tx₃ h₃ => ?_) fun _ _ h => hnil _ h
    split
    · exact hnil _ h₃
    · exact Script.wp_bind (wp_ask_idle (Q:=fun _ tx₄ => tx₄.pending = []) h₃ _ fun _ _ h => h)
        (fun _ _ h => hnil _ h) fun _ _ h => hnil _ h

end

def passwordRequests {ι : Type} (env : Env) (calls : ι → PasswordCall) (db : Database) : Open ι Unit :=
  openAll (fun i => getDb ((calls i).handler env)) db

/-- A commit that writes the password hash of the user finds the hash that it has read. -/
def HashUnstale {ι : Type} (dbms : Dbms) (userId : UUID) (i : ι) (sys : Open ι Unit) : Prop :=
  commits dbms i sys = true → setsHash userId (sys.processes i).state.pending = true →
    ∀ row ∈ sys.shared.users.rows, row.userId = userId →
    ∀ r ∈ (sys.processes i).state.read, r.userId = userId → r.passwordHash = row.passwordHash

instance {ι : Type} (dbms : Dbms) (userId : UUID) (i : ι) (sys : Open ι Unit) :
    Decidable (HashUnstale dbms userId i sys) :=
  inferInstanceAs (Decidable (_ → _ → ∀ row ∈ sys.shared.users.rows, _ → ∀ r ∈
    (sys.processes i).state.read, _ → _))

/-- The password opens the account that is stored. -/
def Authenticates (env : Env) (db : Database) (userId : UUID) (password : String) : Prop :=
  ∃ row ctx, db.users.find? userId = some row ∧
    (verifyPassword env ctx password row.passwordHash).1 = true

def HoldsHash (userId : UUID) (hash : String) (db : Database) : Prop :=
  ∃ row, db.users.find? userId = some row ∧ row.passwordHash = hash

theorem verifyPassword_fst {env : Env} {ctx : Context} {plain hashed : String} :
    (verifyPassword env ctx plain hashed).1 = true ↔
      plain.utf8ByteSize ≤ maxPasswordBytes ∧ env.checkpw plain hashed = some true := by
  unfold verifyPassword
  by_cases hsize : maxPasswordBytes < plain.utf8ByteSize
  · simp [hsize]
  · rw [if_neg hsize]
    have hle : plain.utf8ByteSize ≤ maxPasswordBytes := by omega
    cases env.checkpw plain hashed with
    | none => simp
    | some ok =>
      cases ok with
      | false => simp
      | true => cases needsRehash hashed <;> simp [hle]

theorem utf8ByteSize_ofList_le (cs : List Char) :
    (String.ofList cs).utf8ByteSize ≤ 4*cs.length := by
  induction cs with
  | nil => simp
  | cons c cs ih =>
    have hsplit : String.ofList (c::cs) = String.singleton c ++ String.ofList cs := by
      rw [← String.toList_inj]
      simp
    rw [hsplit,String.utf8ByteSize_append,String.utf8ByteSize_singleton,List.length_cons]
    have hc := Char.utf8Size_le_four c
    omega

theorem temporary_size (ctx : Context) :
    (generateTemporaryPassword ctx).utf8ByteSize ≤ maxPasswordBytes := by
  refine (utf8ByteSize_ofList_le _).trans ?_
  simp [maxPasswordBytes]

section
variable {ι : Type} [DecidableEq ι] {env : Env} {dbms : Dbms} {calls : ι → PasswordCall}
  {sys : Open ι Unit} {userId : UUID} {r : ι}

/-- Every request of the run commits only soundly. -/
abbrev HashBehaved (env : Env) (dbms : Dbms) (calls : ι → PasswordCall) (sys : Open ι Unit) : Prop :=
  sys.EachBehaved (exec dbms) (fun i => OnCommit (HashSound env (calls i))) fun _ _ _ => True

theorem holdsHash_step {i : ι} {hash : String}
    (h : HashBehaved env dbms calls sys)
    (hold : HoldsHash userId hash sys.shared)
    (hset : commits dbms i sys = true → setsHash userId (sys.processes i).state.pending = true →
      ∀ row, sys.shared.users.find? userId = some row →
        (patched userId (sys.processes i).state.pending row).passwordHash = hash) :
    HoldsHash userId hash (sys.step (exec dbms) i).shared := by
  obtain ⟨row,hrow,hhash⟩ := hold
  rcases step_shared dbms i sys with ⟨_,hsame⟩ | ⟨hcommit,happly⟩
  · rw [hsame]
    exact ⟨row,hrow,hhash⟩
  · obtain ⟨v,hown⟩ := (contract_of_commits h hcommit).own
    have hfind := find?_applyAll hown happly userId
    rw [hrow,Option.map_some] at hfind
    refine ⟨_,hfind,?_⟩
    cases hs : setsHash userId (sys.processes i).state.pending with
    | true => exact hset hcommit hs row hrow
    | false => rw [patched_passwordHash hs,hhash]

/-- The commit of a reset stores its hash, if the one it has read is another. -/
theorem holdsHash_reset
    (h : HashBehaved env dbms calls sys)
    (hr : (calls r).request = .resetPassword userId) (hcommit : commits dbms r sys = true)
    (hnew : ∀ row ∈ (sys.processes r).state.read, row.userId = userId →
      row.passwordHash ≠ (calls r).resetHash env)
    (hexists : (sys.shared.users.find? userId).isSome = true) :
    HoldsHash userId ((calls r).resetHash env) (sys.step (exec dbms) r).shared := by
  obtain ⟨row,hrow⟩ := Option.isSome_iff_exists.mp hexists
  have hsound := contract_of_commits h hcommit
  rcases step_shared dbms r sys with ⟨hno,_⟩ | ⟨_,happly⟩
  · rw [hcommit] at hno
    cases hno
  · obtain ⟨v,hown⟩ := hsound.own
    have hfind := find?_applyAll hown happly userId
    rw [hrow,Option.map_some] at hfind
    refine ⟨_,hfind,?_⟩
    have hpending : (sys.processes r).state.pending ≠ [] := by
      intro hnil
      unfold commits at hcommit
      split at hcommit
      · simp [hnil] at hcommit
      · cases hcommit
    rcases hsound.reset userId hr hpending with hs | ⟨q,hq,hid,hhash⟩
    · have hjust := hsound.justified userId hs
      unfold PasswordCall.Justifies at hjust
      rw [hr] at hjust
      exact hjust.2 row
    · exact absurd hhash (hnew q hq hid)

/-- While the stored hash is the reset's, only a change that presents the temporary password
may write another one. -/
theorem holdsHash_next {i : ι}
    (h : HashBehaved env dbms calls sys)
    (hr : (calls r).request = .resetPassword userId)
    (hothers : ∀ i, i ≠ r → (calls i).request ≠ .resetPassword userId)
    (hcost : needsRehash ((calls r).resetHash env) = false)
    (hbcrypt : ∀ p : String, p.utf8ByteSize ≤ maxPasswordBytes →
      (env.checkpw p ((calls r).resetHash env) = some true ↔ p = (calls r).temporary))
    (hunstale : i ≠ r → HashUnstale dbms userId i sys)
    (huntil : commits dbms i sys = true → (calls i).presents userId (calls r).temporary = false)
    (hold : HoldsHash userId ((calls r).resetHash env) sys.shared) :
    HoldsHash userId ((calls r).resetHash env) (sys.step (exec dbms) i).shared := by
  refine holdsHash_step h hold fun hcommit hs row hrow => ?_
  have hjust := (contract_of_commits h hcommit).justified userId hs
  unfold PasswordCall.Justifies at hjust
  by_cases hi : i = r
  · subst hi
    rw [hr] at hjust
    exact hjust.2 row
  · obtain ⟨found,hfound,hhash⟩ := hold
    rw [hrow,Option.some.injEq] at hfound
    obtain ⟨hmem,hid⟩ := (Table.find?_eq_some _ _ _).mp hrow
    have hread : ∀ q ∈ (sys.processes i).state.read, q.userId = userId →
        q.passwordHash = (calls r).resetHash env := fun q hq hqid =>
      (hunstale hi hcommit hs row hmem hid q hq hqid).trans (hfound ▸ hhash)
    cases hc : (calls i).request with
    | resetPassword v =>
      rw [hc] at hjust
      exact absurd (hjust.1 ▸ hc) (hothers i hi)
    | login username password =>
      rw [hc] at hjust
      obtain ⟨q,hq,hqid,hrehash⟩ := hjust
      rw [hread q hq hqid,hcost] at hrehash
      cases hrehash
    | changePassword current new =>
      rw [hc] at hjust
      obtain ⟨claims,hcookie,hsub,q,hq,hqid,hverify⟩ := hjust
      rw [hread q hq hqid,verifyPassword_fst] at hverify
      have hcurrent := (hbcrypt current hverify.1).mp hverify.2
      have hno := huntil hcommit
      simp [PasswordCall.presents,hcookie,hc,hsub,hcurrent] at hno

theorem userExists_step {i : ι}
    (h : HashBehaved env dbms calls sys)
    (hexists : (sys.shared.users.find? userId).isSome = true) :
    ((sys.step (exec dbms) i).shared.users.find? userId).isSome = true := by
  rcases step_shared dbms i sys with ⟨_,hsame⟩ | ⟨hcommit,happly⟩
  · rw [hsame]
    exact hexists
  · obtain ⟨v,hown⟩ := (contract_of_commits h hcommit).own
    rw [find?_applyAll hown happly userId,Option.isSome_map]
    exact hexists

end

/-- After the reset of a user has committed, and until a change that presents the temporary
password commits, this password is the only one that opens the account, if every other commit
that writes the user's hash finds the hash that it has read. -/
theorem temporary_password_only {ι : Type} [DecidableEq ι] (env : Env) (dbms : Dbms)
    (calls : ι → PasswordCall) (db : Database) (userId : UUID) (r : ι) (before after : List ι)
    (hexists : (db.users.find? userId).isSome = true)
    (hr : (calls r).request = .resetPassword userId)
    (hothers : ∀ i, i ≠ r → (calls i).request ≠ .resetPassword userId)
    (hcost : needsRehash ((calls r).resetHash env) = false)
    (hbcrypt : ∀ p : String, p.utf8ByteSize ≤ maxPasswordBytes →
      (env.checkpw p ((calls r).resetHash env) = some true ↔ p = (calls r).temporary))
    (hcommit : commits dbms r ((passwordRequests env calls db).run (exec dbms) before) = true)
    (hnew : ∀ row ∈ (((passwordRequests env calls db).run (exec dbms) before).processes r).state.read,
      row.userId = userId → row.passwordHash ≠ (calls r).resetHash env)
    (hunstale : ((passwordRequests env calls db).run (exec dbms) (before ++ [r])).Along (exec dbms)
      (fun i sys => i ≠ r → HashUnstale dbms userId i sys) after)
    (huntil : ((passwordRequests env calls db).run (exec dbms) (before ++ [r])).Along (exec dbms)
      (fun i sys => commits dbms i sys = true →
        (calls i).presents userId (calls r).temporary = false) after) (password : String) :
    Authenticates env ((passwordRequests env calls db).run (exec dbms) (before ++ r::after)).shared
      userId password ↔ password = (calls r).temporary := by
  have hstart : HashBehaved env dbms calls (passwordRequests env calls db) :=
    fun i => wp_passwordHandler env (calls i)
  have hbefore := hstart.run before
  have hthere : (((passwordRequests env calls db).run (exec dbms) before).shared.users.find?
      userId).isSome = true :=
    (System.run_preserves (P:=fun sys => HashBehaved env dbms calls sys ∧
      (sys.shared.users.find? userId).isSome = true)
      (fun i sys h => ⟨h.1.step i,userExists_step h.1 h.2⟩) ⟨hstart,hexists⟩ before).2
  have hstored := holdsHash_reset hbefore hr hcommit hnew hthere
  rw [System.run_append] at hunstale huntil
  have hinvariant := System.run_invariant (P:=fun sys => HashBehaved env dbms calls sys ∧
      HoldsHash userId ((calls r).resetHash env) sys.shared)
    (fun i sys hcond h => ⟨h.1.step i,
      holdsHash_next h.1 hr hothers hcost hbcrypt hcond.1 hcond.2 h.2⟩)
    ⟨hbefore.step r,hstored⟩ (System.along_and.mpr ⟨hunstale,huntil⟩)
  obtain ⟨row,hrow,hhash⟩ := hinvariant.2
  rw [System.run_append]
  constructor
  · rintro ⟨found,ctx,hfound,hverify⟩
    have hsame : row = found := Option.some.inj (hrow.symm.trans hfound)
    rw [← hsame,hhash,verifyPassword_fst] at hverify
    exact (hbcrypt password hverify.1).mp hverify.2
  · rintro rfl
    refine ⟨row,(calls r).ctx,hrow,?_⟩
    rw [hhash,verifyPassword_fst]
    exact ⟨temporary_size _,(hbcrypt _ (temporary_size _)).mpr rfl⟩

/-- An active user beside the administrator, with the password `old-password`. -/
def member : UserRow :=
  { root with userId := 2, username := "alice", passwordHash := "old-password", role := .viewer }

def withMember : Database :=
  { rootDatabase with users := ⟨[root,member],by decide⟩ }

/-- The administrator resets the password while the user changes it. -/
def resetAndChange : Bool → PasswordCall
  | false => ⟨contextOf 1 0 10,.resetPassword 2⟩
  | true => ⟨contextOf 2 0 11,.changePassword "old-password" "new-password"⟩

theorem plainEnv_checkpw (plain hashed : String) :
    plainEnv.checkpw plain hashed = some true ↔ plain = hashed := by
  simp [plainEnv]

theorem temporary_password_only_member :
    Authenticates plainEnv ((passwordRequests plainEnv resetAndChange withMember).run
      (exec .lenient) (List.replicate 5 false ++ false::[true,true,true])).shared 2 "aaaaaaaaaaaaaaa1" ↔
      "aaaaaaaaaaaaaaa1" = (resetAndChange false).temporary :=
  temporary_password_only plainEnv .lenient resetAndChange withMember 2 false
    (List.replicate 5 false) [true,true,true] (by decide) rfl (by decide) (by decide)
    (fun p _ => by
      have hhash : (resetAndChange false).resetHash plainEnv = (resetAndChange false).temporary := by
        decide
      rw [plainEnv_checkpw,hhash])
    (by decide) (by decide) (by decide) (by decide) _

/-- The change has verified the old password when the reset commits, and commits after it. -/
theorem reset_lost_to_change :
    let sys schedule :=
      System.run (exec .lenient) schedule (passwordRequests plainEnv resetAndChange withMember)
    let final := (sys (List.replicate 2 true ++ List.replicate 7 false ++
      List.replicate 5 true)).shared.users.find? 2
    commits .lenient false (sys (List.replicate 2 true ++ List.replicate 5 false)) = true ∧
      (resetAndChange true).presents 2 (resetAndChange false).temporary = false ∧
      final.map (fun row => (verifyPassword plainEnv (contextOf 0 0 20) "new-password"
        row.passwordHash).1) = some true ∧
      final.map (fun row => (verifyPassword plainEnv (contextOf 0 0 20)
        (resetAndChange false).temporary row.passwordHash).1) = some false := by
  decide

end WzonePortal
